import ReportTemplate.Number.Shortest
import ReportTemplate.Span

/-!
# ReportTemplate.Token — the words of the template language

Keywords and symbols have a fixed text; identifiers, strings and numbers carry what they denote.
Whatever is no token of the language is kept as an unknown token, so that it can be reported where
it stands.
-/

namespace ReportTemplate

inductive Keyword where
  | classKw | staticKw | fnKw
  | letKw | ifKw | elseKw | whileKw | forKw | inKw | returnKw
  | trueKw | falseKw | nullKw
deriving DecidableEq, Repr

namespace Keyword

def all : List Keyword :=
  [.classKw, .staticKw, .fnKw, .letKw, .ifKw, .elseKw, .whileKw, .forKw, .inKw, .returnKw, .trueKw,
    .falseKw, .nullKw]

def text : Keyword → String
  | classKw => "class"
  | staticKw => "static"
  | fnKw => "fn"
  | letKw => "let"
  | ifKw => "if"
  | elseKw => "else"
  | whileKw => "while"
  | forKw => "for"
  | inKw => "in"
  | returnKw => "return"
  | trueKw => "true"
  | falseKw => "false"
  | nullKw => "null"

/-- The keywords that stand for a value. -/
def isLiteral : Keyword → Bool
  | trueKw | falseKw | nullKw => true
  | _ => false

/-- The keyword a word is, if it is one. -/
def ofText? (word : String) : Option Keyword := all.find? fun k => k.text = word

end Keyword

inductive Symbol where
  | arrow | dotDot | equalsEquals | notEquals | lessOrEqual | greaterOrEqual | andAnd | orOr
  | less | greater | equals | bang | plus | minus | star | slash | percent
  | braceOpen | braceClose | bracketOpen | bracketClose | parenOpen | parenClose
  | comma | colon | semicolon | dot
deriving DecidableEq, Repr

namespace Symbol

/-- Every symbol, those of two characters first. -/
def all : List Symbol :=
  [.arrow, .dotDot, .equalsEquals, .notEquals, .lessOrEqual, .greaterOrEqual, .andAnd, .orOr,
    .less, .greater, .equals, .bang, .plus, .minus, .star, .slash, .percent,
    .braceOpen, .braceClose, .bracketOpen, .bracketClose, .parenOpen, .parenClose,
    .comma, .colon, .semicolon, .dot]

def text : Symbol → String
  | arrow => "->"
  | dotDot => ".."
  | equalsEquals => "=="
  | notEquals => "!="
  | lessOrEqual => "<="
  | greaterOrEqual => ">="
  | andAnd => "&&"
  | orOr => "||"
  | less => "<"
  | greater => ">"
  | equals => "="
  | bang => "!"
  | plus => "+"
  | minus => "-"
  | star => "*"
  | slash => "/"
  | percent => "%"
  | braceOpen => "\x7b"
  | braceClose => "\x7d"
  | bracketOpen => "["
  | bracketClose => "]"
  | parenOpen => "("
  | parenClose => ")"
  | comma => ","
  | colon => ":"
  | semicolon => ";"
  | dot => "."

/-- The longest symbol that a text begins with. -/
def atStart? (s : List Char) : Option Symbol := all.find? fun k => k.text.toList.isPrefixOf s

end Symbol

inductive Token where
  | keyword (k : Keyword)
  | symbol (k : Symbol)
  | ident (name : String)
  /-- A string, its escapes resolved. -/
  | string (text : String)
  | int (n : Int64)
  | float (x : Number.Binary64)
  /-- Input that no other token accepts. -/
  | unknown (text : String)
deriving DecidableEq, Repr

namespace Token

/-- The token as messages name it. -/
def describe : Token → String
  | keyword k => if k.isLiteral then "'" ++ k.text ++ "'" else "keyword '" ++ k.text ++ "'"
  | symbol k => "'" ++ k.text ++ "'"
  | ident name => "identifier '" ++ name ++ "'"
  | string text => "string \"" ++ text ++ "\""
  | int n => "number " ++ toString n.toInt
  | float x => "number " ++ x.text
  | unknown text => "'" ++ text ++ "'"

end Token

/-- A token and the bytes it covers. -/
structure Located where
  token : Token
  span : Span
deriving DecidableEq, Repr

end ReportTemplate
