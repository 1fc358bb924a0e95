import ReportTemplate.Syntax
import ReportTemplate.Token

/-!
# ReportTemplate.Proofs.Grammar.Phrase — phrases of a grammar

A phrase is the right side of a rule of a context-free grammar, together with the tree that it builds.
It asks for tokens through its terminals, and for the constructs that occur inside themselves by name.
-/

namespace ReportTemplate.Syntax

/-! ### Terminals -/

/-- A token with a fixed text. -/
inductive Mark where
  | keyword (k : Keyword)
  | symbol (k : Symbol)
deriving DecidableEq

def Mark.token : Mark → Token
  | keyword k => .keyword k
  | symbol k => .symbol k

/-- The value that a token stands for as a literal; digits that fit in no integer count as zero. -/
inductive Denotes : Token → Literal → Prop
  | int (n : Int64) : Denotes (.int n) (.int n)
  | float (x : Number.Binary64) : Denotes (.float x) (.float x)
  | string (s : String) : Denotes (.string s) (.string s)
  | trueKw : Denotes (.keyword .trueKw) (.bool true)
  | falseKw : Denotes (.keyword .falseKw) (.bool false)
  | nullKw : Denotes (.keyword .nullKw) .null
  | oversized (text : String) (digits : ∀ c ∈ text.toList, '0' ≤ c ∧ c ≤ '9') :
    Denotes (.unknown text) (.int 0)

/-- What a phrase can ask of one token. -/
inductive Terminal where
  | mark (m : Mark)
  | name
  | value
deriving DecidableEq

namespace Terminal

/-- The token is what is asked for. -/
def Accepts : Terminal → Token → Prop
  | mark m, t => t = m.token
  | name, t => ∃ s, t = .ident s
  | value, t => ∃ l, Denotes t l

/-- Some token is accepted by both. -/
def clash : Terminal → Terminal → Bool
  | mark m, mark m' => m = m'
  | mark (.keyword k), value | value, mark (.keyword k) => k.isLiteral
  | name, name | value, value => true
  | _, _ => false

theorem clash_of_accepts {x y : Terminal} {t : Token} (hx : x.Accepts t) (hy : y.Accepts t) :
    x.clash y = true := by
  cases x with
  | mark m =>
    obtain rfl := hx
    cases y with
    | mark m' =>
      refine decide_eq_true ?_
      cases m <;> cases m' <;> cases hy <;> rfl
    | name =>
      obtain ⟨s, h⟩ := hy
      cases m <;> cases h
    | value =>
      obtain ⟨l, h⟩ := hy
      cases m <;> cases h <;> rfl
  | name =>
    obtain ⟨s, rfl⟩ := hx
    cases y with
    | mark m' => cases m' <;> cases hy
    | name => rfl
    | value =>
      obtain ⟨l, h⟩ := hy
      cases h
  | value =>
    obtain ⟨l, h⟩ := hx
    cases y with
    | mark m' =>
      obtain rfl := hy
      cases m' <;> cases h <;> rfl
    | name =>
      obtain ⟨s, rfl⟩ := hy
      cases h
    | value => rfl

end Terminal

/-! ### Phrases -/

/-- The constructs that occur inside themselves. -/
inductive Nonterminal : Type → Type
  | expr : Nonterminal Expr
  | type : Nonterminal TypeExpr
  | block : Nonterminal (List Stmt)
  | classDecl : Nonterminal Class

/-- The constructs that messages name. -/
inductive Label where
  | expression
  | type
  | statement
deriving DecidableEq

def Label.text : Label → String
  | expression => "expression"
  | type => "type"
  | statement => "statement"

/-- The right side of a rule that builds trees of a type. -/
inductive Phrase : Type → Type 1
  | fixed (m : Mark) : Phrase Unit
  | name : Phrase String
  | value : Phrase Literal
  | map {α β : Type} (f : α → β) (p : Phrase α) : Phrase β
  | seq {α β : Type} (p : Phrase α) (q : Phrase β) : Phrase (α × β)
  | either {α : Type} (p q : Phrase α) : Phrase α
  | optional {α : Type} (p : Phrase α) : Phrase (Option α)
  | many {α : Type} (p : Phrase α) : Phrase (List α)
  /-- Items with commas between them; a comma may stand behind the last. -/
  | items {α : Type} (p : Phrase α) : Phrase (List α)
  /-- The tree with the span from its first to its last token. -/
  | spanned {α : Type} (p : Phrase α) : Phrase (α × Span)
  | labelled {α : Type} (label : Label) (p : Phrase α) : Phrase α
  | rule {α : Type} (n : Nonterminal α) : Phrase α

namespace Phrase

variable {α β : Type}

def symbol (k : Symbol) : Phrase Unit := .fixed (.symbol k)

def keyword (k : Keyword) : Phrase Unit := .fixed (.keyword k)

/-- Two phrases, of which the second builds the tree. -/
def before (p : Phrase α) (q : Phrase β) : Phrase β := .map Prod.snd (.seq p q)

/-- Two phrases, of which the first builds the tree. -/
def after (p : Phrase α) (q : Phrase β) : Phrase α := .map Prod.fst (.seq p q)

/-- A phrase between two symbols. -/
def between (opening closing : Symbol) (p : Phrase α) : Phrase α :=
  before (symbol opening) (after p (symbol closing))

/-- The empty text is a sentence of the phrase. -/
def nullable : {α : Type} → Phrase α → Bool
  | _, .fixed _ | _, .name | _, .value | _, .rule _ => false
  | _, .map _ p | _, .spanned p | _, .labelled _ p => p.nullable
  | _, .seq p q => p.nullable && q.nullable
  | _, .either p q => p.nullable || q.nullable
  | _, .optional _ | _, .many _ | _, .items _ => true

/-- Rules are used only behind a token. -/
def guarded : {α : Type} → Phrase α → Bool
  | _, .fixed _ | _, .name | _, .value => true
  | _, .rule _ => false
  | _, .seq p q => p.guarded && (!p.nullable || q.guarded)
  | _, .either p q => p.guarded && q.guarded
  | _, .map _ p | _, .optional p | _, .many p | _, .items p | _, .spanned p | _, .labelled _ p =>
    p.guarded

/-- What is repeated, and what has a span, has tokens. -/
def advancing : {α : Type} → Phrase α → Bool
  | _, .fixed _ | _, .name | _, .value | _, .rule _ => true
  | _, .seq p q | _, .either p q => p.advancing && q.advancing
  | _, .map _ p | _, .optional p | _, .labelled _ p => p.advancing
  | _, .many p | _, .items p | _, .spanned p => !p.nullable && p.advancing

theorem advancing_repeated {α : Type} {p : Phrase α} (h : (!p.nullable && p.advancing) = true) :
    p.nullable = false ∧ p.advancing = true := by
  simpa using h

end Phrase

end ReportTemplate.Syntax
